import RepoLens.EvidenceIssue

/-!
Sequences of `Issue` calls of one attempt. An item is stored once for a range of lines,
and a later call whose range comes out the same is given the stored item, with the
budget flag and the number of lines of the call that stored it.
-/

namespace RepoLens

open Lines

namespace RangeQuery

variable {query other : RangeQuery} {lines : List Bytes}

def Exceeds (query : RangeQuery) (lines : List Bytes) : Prop :=
  ¬ Within query.maxBytes (join newline (query.selection lines)).length

theorem exceeds_iff : query.Exceeds lines ↔
    (query.taken lines).length < (query.selection lines).length := by
  constructor
  · intro exceeds
    by_contra whole
    apply exceeds
    have all : query.taken lines = query.selection lines :=
      fitting_eq_of_length (Nat.le_of_not_lt whole)
    rw [← all]
    exact fitting_within newline query.maxBytes _
  · intro short within
    have fits := length_le_fitting newline (List.prefix_refl (query.selection lines)) within
    exact absurd short (Nat.not_lt.mpr fits)

theorem taken_eq_of_length (shows_ : query.Shows lines) (others : other.Shows lines)
    (start : query.startLine = other.startLine)
    (size : (query.taken lines).length = (other.taken lines).length) :
    query.taken lines = other.taken lines := by
  rw [← reread_selection shows_, ← reread_selection others, reread, reread, start, size]

end RangeQuery

theorem pairwise_of_splits {α : Type} {related : α → α → Prop} {list : List α}
    (splits : ∀ before earlier between later after,
      list = before ++ earlier :: (between ++ later :: after) → related earlier later) :
    list.Pairwise related := by
  induction list with
  | nil => exact .nil
  | cons head tail ih =>
    apply List.Pairwise.cons
    · intro later member
      obtain ⟨between, after, rfl⟩ := List.append_of_mem member
      exact splits [] head between later after rfl
    · apply ih
      intro before earlier between later after split_
      exact splits (head :: before) earlier between later after (by simp [split_])

namespace Evidence

def Item.Agrees (item other : Item) : Prop :=
  item.filePath = other.filePath ∧ item.startLine = other.startLine ∧
    item.endLine = other.endLine ∧ item.totalLines = other.totalLines ∧
    item.rawContentHash = other.rawContentHash ∧ item.displayExcerpt = other.displayExcerpt ∧
    item.redactionApplied = other.redactionApplied ∧ item.truncated = other.truncated

namespace Service

variable (service : Service)

def first (call : IssueCall) : Except EvidenceErr Item :=
  (service.issue { call with faults := .none } []).1

def lines (request : IssueRequest) : Option (List Bytes) :=
  (service.content request.repositoryID request.snapshotID request.filePath).map (·.splitOn newline)

/-- The item is what the call returns as the first one, and its flag is TRUE exactly when
the requested range exceeds the budget of this call. -/
def Faithful (call : IssueCall) (item : Item) : Prop :=
  (∃ first, service.first call = .ok first ∧ item.Agrees first) ∧
    ∀ lines, service.lines call.request = some lines →
      (item.truncated = true ↔ call.request.query.Exceeds lines)

/-- Two requests, for files with these lines, whose paths the store takes for the same and which
show equally many lines from the same one on, with the same digest. -/
structure SameLines (earlier later : IssueRequest) (one two : List Bytes) : Prop where
  path : service.collate (cleanPath earlier.filePath) = service.collate (cleanPath later.filePath)
  start : earlier.query.startLine = later.query.startLine
  shown : earlier.query.Shows one
  shows_ : later.query.Shows two
  size : (earlier.query.taken one).length = (later.query.taken two).length
  digest : service.sha256.hex (join newline (earlier.query.taken one)) =
    service.sha256.hex (join newline (later.query.taken two))

/-- Where an earlier and a later call, which the store answers, show the same lines, they are lines
of the same file, both or none exceed their budgets, and both or none read up to its end. -/
def Compatible (earlier later : IssueCall) : Prop :=
  earlier.faults.find = none → earlier.faults.create = none → later.faults.find = none →
  service.Accepts earlier.request → service.Accepts later.request →
  ∀ one two, service.lines earlier.request = some one → service.lines later.request = some two →
    service.SameLines earlier.request later.request one two →
    cleanPath earlier.request.filePath = cleanPath later.request.filePath ∧
      (earlier.request.query.Exceeds one ↔ later.request.query.Exceeds two) ∧
      (earlier.request.query.ReadsAll one ↔ later.request.query.ReadsAll two)

variable {service}

variable {found : FileRange} {call earlier later : IssueCall} {rows : List Item} {item : Item}
  {lines one two : List Bytes}

theorem fetch_lines {buffering : Buffering} {request : IssueRequest} :
    service.fetch buffering request = .ok found ↔
      service.Accepts request ∧ ∃ lines, service.lines request = some lines ∧
        request.query.Shows lines ∧
          request.query.found (cleanPath request.filePath) lines = found := by
  rw [fetch_ok_iff]
  simp [Service.lines]

theorem first_eq (fetched : service.fetch call.buffering call.request = .ok found) :
    service.first call = .ok (service.newItem call found) := by
  simp only [first, issue, fetched]
  rfl

theorem newItem_faithful (fetched : service.fetch call.buffering call.request = .ok found) :
    service.Faithful call (service.newItem call found) := by
  refine ⟨⟨_, first_eq fetched, rfl, rfl, rfl, rfl, rfl, rfl, rfl, rfl⟩, ?_⟩
  obtain ⟨-, lines, there, -, rfl⟩ := fetch_lines.mp fetched
  intro same found_
  rw [there, Option.some.injEq] at found_
  subst found_
  rw [RangeQuery.exceeds_iff]
  simp [newItem, RangeQuery.found]

theorem issue_rows (call : IssueCall) (rows : List Item) :
    ∃ more, (service.issue call rows).2 = rows ++ more := by
  unfold issue
  cases service.fetch call.buffering call.request with
  | error err => exact ⟨[], by simp⟩
  | ok found =>
    rcases @record_rows service call found rows with same | ⟨-, -, grown⟩ | grown
    · exact ⟨[], by simpa using same⟩
    · exact ⟨_, grown⟩
    · exact ⟨_, grown⟩

theorem findCanonical_append {identity : Identity}
    (found : service.findCanonical rows identity = some item) (more : List Item) :
    service.findCanonical (rows ++ more) identity = some item := by
  unfold findCanonical at found
  simp [findCanonical, List.find?_append, found]

theorem findCanonical_rowsAfter {identity : Identity}
    (found : service.findCanonical rows identity = some item) (calls : List IssueCall) :
    service.findCanonical (service.rowsAfter calls rows) identity = some item := by
  induction calls generalizing rows with
  | nil => exact found
  | cons call calls ih =>
    obtain ⟨more, grown⟩ := @issue_rows service call rows
    rw [rowsAfter, grown]
    exact ih (findCanonical_append found more)

theorem rowsAfter_append (before after : List IssueCall) (rows : List Item) :
    service.rowsAfter (before ++ after) rows =
      service.rowsAfter after (service.rowsAfter before rows) := by
  induction before generalizing rows with
  | nil => rfl
  | cons call before ih => exact ih _

theorem issue_stores (rows : List Item)
    (fetched : service.fetch call.buffering call.request = .ok found)
    (lookup : call.faults.find = none) (insert : call.faults.create = none) :
    ∃ item, (service.issue call rows).1 = .ok item ∧
      service.findCanonical (service.issue call rows).2
        (service.identity (service.newItem call found)) = some item := by
  simp only [issue, fetched, record, lookup, insert]
  cases canonical : service.findCanonical rows (service.identity (service.newItem call found)) with
  | some existing => exact ⟨existing, rfl, canonical⟩
  | none =>
    refine ⟨service.newItem call found, rfl, ?_⟩
    unfold findCanonical at canonical
    simp [findCanonical, List.find?_append, canonical]

theorem issue_finds (fetched : service.fetch call.buffering call.request = .ok found)
    (lookup : call.faults.find = none)
    (canonical : service.findCanonical rows (service.identity (service.newItem call found)) =
      some item) :
    (service.issue call rows).1 = .ok item := by
  simp only [issue, fetched, record, lookup, canonical]

theorem rowsAfter_origin {calls : List IssueCall} (undisturbed : ∀ call ∈ calls, call.others = [])
    {table : List Item} {row : Item} (member : row ∈ service.rowsAfter calls table) :
    row ∈ table ∨ ∃ call ∈ calls, ∃ found, service.fetch call.buffering call.request = .ok found ∧
      call.faults.find = none ∧ call.faults.create = none ∧ row = service.newItem call found := by
  induction calls generalizing table with
  | nil => exact .inl member
  | cons call calls ih =>
    have later := ih (fun call member => undisturbed call (List.mem_cons_of_mem _ member)) member
    rcases later with before | ⟨maker, among, made⟩
    · cases fetched : service.fetch call.buffering call.request with
      | error err =>
        simp only [issue, fetched] at before
        exact .inl before
      | ok found =>
        simp only [issue, fetched] at before
        rcases @record_rows service call found table with same | ⟨lookup, insert, grown⟩ | grown
        · exact .inl (same ▸ before)
        · simp only [grown, List.mem_append, List.mem_singleton] at before
          rcases before with before | rfl
          · exact .inl before
          · exact .inr ⟨call, by simp, found, fetched, lookup, insert, rfl⟩
        · rw [grown, undisturbed call (by simp), List.append_nil] at before
          exact .inl before
    · exact .inr ⟨maker, List.mem_cons_of_mem _ among, made⟩

theorem lines_eq {earlier later : IssueRequest} (lineage : earlier.lineage = later.lineage)
    (path : cleanPath earlier.filePath = cleanPath later.filePath)
    (first : service.lines earlier = some one) (second : service.lines later = some two) :
    one = two := by
  simp only [IssueRequest.lineage, DraftLineage.mk.injEq] at lineage
  obtain ⟨-, -, repository, snapshot, -⟩ := lineage
  obtain ⟨content, there, rfl⟩ := Option.map_eq_some_iff.mp first
  obtain ⟨content_, there_, rfl⟩ := Option.map_eq_some_iff.mp second
  have clean := content_cleanPath there
  have clean_ := content_cleanPath there_
  rw [path, repository, snapshot, clean_, Option.some.injEq] at clean
  rw [clean]

theorem identity_eq_iff (lineage : earlier.request.lineage = later.request.lineage)
    (shown : earlier.request.query.Shows one) (shows_ : later.request.query.Shows two) :
    service.identity (service.newItem earlier
        (earlier.request.query.found (cleanPath earlier.request.filePath) one)) =
      service.identity (service.newItem later
        (later.request.query.found (cleanPath later.request.filePath) two)) ↔
      service.SameLines earlier.request later.request one two := by
  simp only [IssueRequest.lineage, DraftLineage.mk.injEq] at lineage
  simp only [identity, newItem, RangeQuery.found, Identity.mk.injEq]
  constructor
  · rintro ⟨-, -, path, start, stop, digest⟩
    exact ⟨path, start, shown, shows_, by omega, digest⟩
  · rintro ⟨path, start, -, -, size, digest⟩
    exact ⟨lineage.1, lineage.2.2.2.1, path, start, by rw [start, size], digest⟩

theorem fetch_of_lines (accepts : service.Accepts call.request)
    (there : service.lines call.request = some lines) (shows_ : call.request.query.Shows lines) :
    service.fetch call.buffering call.request =
      .ok (call.request.query.found (cleanPath call.request.filePath) lines) :=
  fetch_lines.mpr ⟨accepts, lines, there, shows_, rfl⟩

theorem Faithful.view (faithful : service.Faithful call item)
    (accepts : service.Accepts call.request) (there : service.lines call.request = some lines)
    (shows_ : call.request.query.Shows lines) :
    item.filePath = cleanPath call.request.filePath ∧
      (item.truncated = true ↔ call.request.query.Exceeds lines) ∧
      item.totalLines = if call.request.query.ReadsAll lines then lines.length else 0 := by
  obtain ⟨⟨first, returned, agrees⟩, cut⟩ := faithful
  rw [first_eq (fetch_of_lines accepts there shows_), Except.ok.injEq] at returned
  subst returned
  exact ⟨agrees.1, cut lines there, agrees.2.2.2.1⟩

theorem compatible_of_faithful {between : List IssueCall}
    (lineage : earlier.request.lineage = later.request.lineage)
    (first : ∀ item, (service.issue earlier rows).1 = .ok item → service.Faithful earlier item)
    (second : ∀ item, (service.issue later (service.rowsAfter (earlier :: between) rows)).1 =
      .ok item → service.Faithful later item) :
    service.Compatible earlier later := by
  intro lookup insert lookup_ accepts accepts_ one two there there_ same
  have fetched := fetch_of_lines accepts there same.shown
  have fetched_ := fetch_of_lines accepts_ there_ same.shows_
  obtain ⟨item, returned, stored⟩ := issue_stores rows fetched lookup insert
  have kept := @findCanonical_rowsAfter service _ _ _ stored between
  rw [(identity_eq_iff lineage same.shown same.shows_).mpr same] at kept
  obtain ⟨path, cut, total⟩ := (first item returned).view accepts there same.shown
  obtain ⟨path_, cut_, total_⟩ := (second item (issue_finds fetched_ lookup_ kept)).view accepts_
    there_ same.shows_
  have clean := path.symm.trans path_
  obtain rfl := lines_eq lineage clean there there_
  refine ⟨clean, cut.symm.trans cut_, ?_⟩
  have some : one.length ≠ 0 := by
    intro none
    have inside := same.shown.inside
    have start := same.shown.proper.start
    omega
  rw [total] at total_
  by_cases all : earlier.request.query.ReadsAll one <;>
    by_cases all_ : later.request.query.ReadsAll one <;>
    simp_all

theorem faithful_of_compatible {found_ : FileRange}
    (lineage : earlier.request.lineage = later.request.lineage)
    (compatible : service.Compatible earlier later)
    (fetched : service.fetch earlier.buffering earlier.request = .ok found)
    (lookup : earlier.faults.find = none) (insert : earlier.faults.create = none)
    (fetched_ : service.fetch later.buffering later.request = .ok found_)
    (lookup_ : later.faults.find = none)
    (identity : service.identity (service.newItem earlier found) =
      service.identity (service.newItem later found_)) :
    service.Faithful later (service.newItem earlier found) := by
  have first := first_eq fetched_
  obtain ⟨accepts, lines, there, shown, rfl⟩ := fetch_lines.mp fetched
  obtain ⟨accepts_, lines_, there_, shows_, rfl⟩ := fetch_lines.mp fetched_
  have same := (identity_eq_iff lineage shown shows_).mp identity
  obtain ⟨path, cut, all⟩ := compatible lookup insert lookup_ accepts accepts_ _ _ there there_ same
  obtain rfl := lines_eq lineage path there there_
  have taken := RangeQuery.taken_eq_of_length shown shows_ same.start same.size
  have flag : decide ((earlier.request.query.taken lines).length <
        (earlier.request.query.selection lines).length) =
      decide ((later.request.query.taken lines).length <
        (later.request.query.selection lines).length) := by
    rw [decide_eq_decide, ← RangeQuery.exceeds_iff, ← RangeQuery.exceeds_iff]
    exact cut
  refine ⟨⟨_, first, path, same.start, ?_, ?_, ?_, ?_, ?_, flag⟩, ?_⟩
  · simp only [newItem, RangeQuery.found, same.start, same.size]
  · simp only [newItem, RangeQuery.found, all]
  · simp only [newItem, RangeQuery.found, taken]
  · simp only [newItem, RangeQuery.found, taken]
  · simp only [newItem, RangeQuery.found, taken]
  · intro lines_ found_
    rw [there_, Option.some.injEq] at found_
    subst found_
    rw [← cut, RangeQuery.exceeds_iff]
    simp [newItem, RangeQuery.found]

end Service

open Service in
/-- Deduplication goes unnoticed exactly where calls answered with the same lines agree on the file,
on whether their budgets were exceeded and on whether the end was read. -/
theorem issue_transparent_iff (service : Service) (calls : List IssueCall) (lineage : DraftLineage)
    (table : List Item) (ofAttempt : ∀ call ∈ calls, call.request.lineage = lineage)
    (undisturbed : ∀ call ∈ calls, call.others = [])
    (fresh : ∀ row ∈ table, row.attemptID ≠ lineage.attemptID) :
    (∀ before call after, calls = before ++ call :: after →
      ∀ item, (service.issue call (service.rowsAfter before table)).1 = .ok item →
        service.Faithful call item) ↔
      calls.Pairwise service.Compatible := by
  constructor
  · intro faithful
    apply pairwise_of_splits
    intro before earlier between later after split_
    have among : earlier ∈ calls ∧ later ∈ calls := by simp [split_]
    apply compatible_of_faithful
    · rw [ofAttempt earlier among.1, ofAttempt later among.2]
    · exact faithful before earlier (between ++ later :: after) split_
    · intro item issued
      apply faithful (before ++ earlier :: between) later after (by simp [split_]) item
      rw [rowsAfter_append]
      exact issued
  · rintro compatible before call after rfl item issued
    obtain ⟨found, fetched, returned⟩ := issue_ok issued
    rcases record_ok returned with rfl | ⟨member, identity⟩
    · exact newItem_faithful fetched
    · rw [undisturbed call (by simp), List.append_nil] at member
      have lookup : call.faults.find = none := by
        cases failed : call.faults.find with
        | none => rfl
        | some err => simp [record, failed] at returned
      rcases rowsAfter_origin (fun call member => undisturbed call (by simp [member])) member with
        there | ⟨maker, among, range, made, lookup_, insert, rfl⟩
      · -- the table held no row of this attempt
        have attempt : item.attemptID = call.request.attemptID :=
          congrArg Identity.attemptID identity
        have own := congrArg DraftLineage.attemptID (ofAttempt call (by simp))
        exact absurd (attempt.trans own) (fresh item there)
      · apply faithful_of_compatible _ _ made lookup_ insert fetched lookup identity
        · rw [ofAttempt maker (by simp [among]), ofAttempt call (by simp)]
        · exact (List.pairwise_append.mp compatible).2.2 maker among call (by simp)

/-- Two calls that start at different lines. -/
theorem issue_transparent_iff_apart :
    let service := oneFileService (Utf8.ofString "one\ntwo\nthree")
    let calls := [readCall "1" "a.go" 1 2 0, readCall "2" "a.go" 2 9 4]
    ∀ before call after, calls = before ++ call :: after →
      ∀ item, (service.issue call (service.rowsAfter before [])).1 = .ok item →
        service.Faithful call item := by
  intro service calls
  apply (issue_transparent_iff service calls ⟨"attempt", "run", "repo", "snap", 1⟩ []
    (by simp [calls, readCall, IssueRequest.lineage])
    (by simp [calls, readCall, IssueCall.others, StoreFaults.none]) (by simp)).mpr
  rw [List.pairwise_pair]
  intro _ _ _ _ _ one two _ _ same
  have start := same.start
  simp [readCall, IssueRequest.query] at start

/-- After lines 1 to 2 in full, lines 1 to 4 under a budget for two of them come back as complete;
alone the same call says that they were cut. -/
theorem issue_truncated_forgotten :
    let service := oneFileService (Utf8.ofString "one\ntwo\nthree\nfour")
    let whole := readCall "1" "a.go" 1 2 0
    let cut := readCall "2" "a.go" 1 4 8
    let told (item : Item) := (item.startLine, item.endLine, item.truncated)
    (service.issue cut (service.rowsAfter [whole] [])).1.map told = .ok (1, 2, false) ∧
      (service.first cut).map told = .ok (1, 2, true) := by
  decide +kernel

end Evidence

end RepoLens
