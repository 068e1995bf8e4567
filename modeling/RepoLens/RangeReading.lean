import RepoLens.SnapshotRanges

/-!
What the single range reader returns, whatever pieces the buffered reader cuts the file into: the
longest run of the requested lines that stays within the limit.
-/

namespace RepoLens

open Lines

namespace RangeQuery
variable {lines : List Bytes}

variable (query : RangeQuery)

def selection (lines : List Bytes) : List Bytes :=
  (if query.requestedEnd ≤ 0 then lines else lines.take query.requestedEnd.toNat).drop
    (query.startLine - 1).toNat

def taken (lines : List Bytes) : List Bytes := fitting query.maxBytes (query.selection lines)

/-- The range is one that `readFileRangeAt` passes on. -/
structure Proper : Prop where
  start : 1 ≤ query.startLine
  ordered : query.requestedEnd ≤ 0 ∨ query.startLine ≤ query.requestedEnd

def Covers (lineNo : Nat) : Prop :=
  query.startLine ≤ lineNo ∧ (query.requestedEnd ≤ 0 ∨ (lineNo : Int) ≤ query.requestedEnd)

instance (lineNo : Nat) : Decidable (query.Covers lineNo) :=
  inferInstanceAs (Decidable (_ ∧ _))

@[simp]
theorem selection_nil : query.selection [] = [] := by
  simp [selection]

variable {query}

theorem selection_concat (proper : query.Proper) (lines : List Bytes) (line : Bytes) :
    query.selection (lines ++ [line]) =
      query.selection lines ++ if query.Covers (lines.length + 1) then [line] else [] := by
  obtain ⟨start, ordered⟩ := proper
  unfold selection Covers
  by_cases unbounded : query.requestedEnd ≤ 0
  · simp only [unbounded, if_true, List.drop_append, true_or, and_true]
    congr 1
    split
    · rw [Nat.sub_eq_zero_of_le (by omega), List.drop_zero]
    · exact List.drop_eq_nil_of_le (by simp only [List.length_singleton]; omega)
  · simp only [unbounded, if_false, List.take_append, List.drop_append, false_or]
    congr 1
    split
    · have begun : (query.startLine - 1).toNat -
          (lines.take query.requestedEnd.toNat).length = 0 := by
        rw [List.length_take]
        omega
      rw [begun, List.drop_zero,
        List.take_of_length_le (by simp only [List.length_singleton]; omega)]
    · next outside =>
        apply List.drop_eq_nil_of_le
        simp only [List.length_take, List.length_singleton]
        omega

theorem selection_append_beyond (bounded : 0 < query.requestedEnd)
    (reached : query.requestedEnd ≤ lines.length) (more : List Bytes) :
    query.selection (lines ++ more) = query.selection lines := by
  unfold selection
  rw [if_neg (by omega), List.take_append_of_le_length (by omega), if_neg (by omega)]

theorem selection_append_initial (lines more : List Bytes) :
    query.selection lines <+: query.selection (lines ++ more) := by
  unfold selection
  split
  · rw [List.drop_append]
    exact List.prefix_append _ _
  · rw [List.take_append, List.drop_append]
    exact List.prefix_append _ _

theorem length_selection (proper : query.Proper) (inside : query.Covers (lines.length + 1)) :
    ((query.selection lines).length : Int) = lines.length + 1 - query.startLine := by
  obtain ⟨start, ordered⟩ := proper
  obtain ⟨started, open_⟩ := inside
  unfold selection
  split
  · rw [List.length_drop]
    omega
  · rw [List.length_drop, List.length_take]
    omega

theorem selection_eq_nil_of_lt (beyond : (lines.length : Int) < query.startLine) :
    query.selection lines = [] := by
  unfold selection
  apply List.drop_eq_nil_of_le
  split
  · omega
  · rw [List.length_take]
    omega

theorem taken_concat (proper : query.Proper) (lines : List Bytes) (line : Bytes) :
    query.taken (lines ++ [line]) =
      if query.Covers (lines.length + 1) ∧
          (query.selection lines).length ≤ (query.taken lines).length ∧
          Within query.maxBytes (join newline (query.selection lines ++ [line])).length then
        query.selection lines ++ [line]
      else query.taken lines := by
  rw [taken, selection_concat proper]
  by_cases inside : query.Covers (lines.length + 1)
  · simp only [inside, if_true, true_and]
    exact fitting_concat newline _ _ _
  · simp [inside, taken]

theorem taken_prefix (lines : List Bytes) : query.taken lines <+: query.selection lines :=
  fitting_initial _ _

theorem taken_append_of_short (short : (query.taken lines).length < (query.selection lines).length)
    (more : List Bytes) :
    query.taken (lines ++ more) = query.taken lines := by
  obtain ⟨further, whole⟩ := query.selection_append_initial lines more
  rw [taken, ← whole]
  exact fitting_append_of_short short further

theorem length_selection_le (lines more : List Bytes) :
    (query.selection lines).length ≤ (query.selection (lines ++ more)).length :=
  (selection_append_initial lines more).length_le

end RangeQuery

namespace LineScan

variable {query : RangeQuery} {scan : LineScan} {before : List Bytes} {pending : Bytes}

/-- The variables of the loop when the lines `before` are complete. -/
structure Tracks (query : RangeQuery) (scan : LineScan) (before : List Bytes) : Prop where
  lineNo : scan.lineNo = before.length + 1
  totalLines : scan.totalLines = before.length + 1
  content : scan.content = join newline (query.taken before)
  selectedLines : scan.selectedLines = (query.taken before).length
  truncated : scan.truncated =
    decide ((query.taken before).length < (query.selection before).length)
  endLine : scan.actualEndLine = query.startLine - 1 + (query.taken before).length
  begun : query.taken before = [] → query.selection before = []

def Holds (query : RangeQuery) (scan : LineScan) (pending : Bytes) : Prop :=
  if scan.selected query then
    if Within query.maxBytes pending.length then
      scan.currentLineTooLong = false ∧ scan.currentLine = pending
    else query.stopAtEnd = false ∧ scan.currentLineTooLong = true ∧ scan.currentLine = []
  else scan.currentLineTooLong = false ∧ scan.currentLine = []

theorem tracks_init : (init query).Tracks query [] := by
  have none : query.taken [] = [] := by simp [RangeQuery.taken]
  refine ⟨rfl, rfl, ?_, ?_, ?_, ?_, fun _ => query.selection_nil⟩
  all_goals simp [none, init]

theorem holds_nil (fresh : scan.currentLineTooLong = false) (empty : scan.currentLine = []) :
    scan.Holds query [] := by
  unfold Holds
  split
  · simp [Within.zero, fresh, empty]
  · exact ⟨fresh, empty⟩

theorem Tracks.selected_iff (tracks : scan.Tracks query before) :
    scan.selected query = true ↔
      query.Covers (before.length + 1) ∧
        (query.selection before).length ≤ (query.taken before).length := by
  simp only [selected, tracks.lineNo, tracks.truncated, Bool.and_eq_true, Bool.or_eq_true,
    decide_eq_true_eq, Bool.not_eq_true', decide_eq_false_iff_not, Nat.not_lt, RangeQuery.Covers]

theorem Tracks.taken_eq (tracks : scan.Tracks query before)
    (chosen : scan.selected query = true) : query.taken before = query.selection before :=
  fitting_eq_of_length (tracks.selected_iff.mp chosen).2

theorem collect_cases (tracks : scan.Tracks query before) (holds : scan.Holds query pending)
    (part : Bytes) :
    (∃ scan', scan.collect query part = .inr scan' ∧ scan'.Tracks query before ∧
      scan'.Holds query (pending ++ part)) ∨
    (query.stopAtEnd = true ∧ scan.selected query = true ∧
      ¬ Within query.maxBytes (pending ++ part).length ∧
      scan.collect query part =
        .inl (if query.taken before = [] then .error .lineTooLong
          else .ok ⟨scan.content, scan.actualEndLine, 0, true, false⟩)) := by
  unfold Holds at holds
  by_cases chosen : scan.selected query = true
  · rw [if_pos chosen] at holds
    have none_iff : scan.selectedLines = 0 ↔ query.taken before = [] := by
      rw [tracks.selectedLines, List.length_eq_zero_iff]
    by_cases short : Within query.maxBytes pending.length
    · rw [if_pos short] at holds
      obtain ⟨fresh, kept⟩ := holds
      by_cases fits : Within query.maxBytes (pending ++ part).length
      · left
        refine ⟨{ scan with currentLine := pending ++ part }, ?_, { tracks with }, ?_⟩
        · simp only [collect, chosen, fresh, kept, Bool.not_false, Bool.and_true, if_true]
          rw [if_neg]
          rw [List.length_append] at fits
          unfold Within at fits
          omega
        · unfold Holds
          rw [if_pos (by exact chosen), if_pos fits]
          exact ⟨fresh, rfl⟩
      · have exceeds : 0 < query.maxBytes ∧ query.maxBytes < pending.length + part.length := by
          rw [List.length_append] at fits
          unfold Within at fits
          omega
        by_cases stop : query.stopAtEnd = true
        · right
          refine ⟨stop, chosen, fits, ?_⟩
          simp only [collect, chosen, fresh, kept, Bool.not_false, Bool.and_true, if_true,
            if_pos exceeds, stop, none_iff]
          split <;> rfl
        · left
          refine ⟨{ scan with currentLineTooLong := true, currentLine := [] }, ?_,
            { tracks with }, ?_⟩
          · simp [collect, chosen, fresh, kept, exceeds, stop]
          · unfold Holds
            rw [if_pos (by exact chosen), if_neg fits]
            exact ⟨Bool.not_eq_true _ ▸ stop, rfl, rfl⟩
    · -- the line is too long already; the part is dropped
      rw [if_neg short] at holds
      left
      refine ⟨scan, by simp [collect, holds.2.1], tracks, ?_⟩
      unfold Holds
      rw [if_pos chosen, if_neg fun fits => short (fits.mono (by simp))]
      exact holds
  · left
    refine ⟨scan, by simp [collect, chosen], tracks, ?_⟩
    unfold Holds
    rw [if_neg chosen] at holds ⊢
    exact holds

theorem overflows_iff (tracks : scan.Tracks query before) (holds : scan.Holds query pending)
    (chosen : scan.selected query = true) :
    scan.overflows query = true ↔
      ¬ Within query.maxBytes (join newline (query.selection before ++ [pending])).length := by
  rw [← tracks.taken_eq chosen, length_join_concat]
  unfold Holds at holds
  rw [if_pos chosen] at holds
  by_cases short : Within query.maxBytes pending.length
  · rw [if_pos short] at holds
    have separator : scan.separatorBytes = if query.taken before = [] then 0 else 1 := by
      unfold separatorBytes
      rw [tracks.selectedLines]
      by_cases none : query.taken before = []
      · simp [none]
      · rw [if_pos (List.length_pos_iff.mpr none), if_neg none]
    simp only [overflows, holds.1, holds.2, tracks.content, separator, Bool.false_or,
      decide_eq_true_eq, Within]
    omega
  · rw [if_neg short] at holds
    simp only [overflows, holds.2.1, Bool.true_or, true_iff]
    exact fun fits => short (fits.mono (by omega))

theorem complete_cases (proper : query.Proper) (tracks : scan.Tracks query before)
    (holds : scan.Holds query pending) :
    (scan.complete query = .error .lineTooLong ∧ query.taken (before ++ [pending]) = [] ∧
      query.selection (before ++ [pending]) ≠ []) ∨
    ∃ scan', scan.complete query = .ok scan' ∧
      scan'.nextLine.Tracks query (before ++ [pending]) ∧
      scan'.currentLineTooLong = false ∧ scan'.currentLine = [] := by
  have more := RangeQuery.taken_concat proper before pending
  have asked := RangeQuery.selection_concat proper before pending
  by_cases chosen : scan.selected query = true
  · obtain ⟨inside, room⟩ := tracks.selected_iff.mp chosen
    have same := tracks.taken_eq chosen
    rw [if_pos inside] at asked
    have over_iff := overflows_iff tracks holds chosen
    by_cases over_ : scan.overflows query = true
    · have left_out : query.taken (before ++ [pending]) = query.taken before := by
        rw [more, if_neg fun fits => over_iff.mp over_ fits.2.2]
      by_cases none : query.taken before = []
      · left
        refine ⟨?_, left_out.trans none, by simp [asked]⟩
        simp [complete, chosen, over_, tracks.selectedLines, none]
      · right
        have some : scan.selectedLines ≠ 0 := by
          rw [tracks.selectedLines]
          exact fun zero => none (List.length_eq_zero_iff.mp zero)
        refine ⟨_, by simp only [complete, chosen, over_, if_true, if_neg some]; rfl, ?_, rfl, rfl⟩
        refine ⟨by simp [nextLine, tracks.lineNo], by simp [nextLine, tracks.totalLines],
          by rw [left_out]; exact tracks.content, by rw [left_out]; exact tracks.selectedLines,
          ?_, by rw [left_out]; exact tracks.endLine, fun empty => absurd (left_out ▸ empty) none⟩
        rw [left_out, same, asked]
        simp [nextLine]
    · right
      have added : query.taken (before ++ [pending]) = query.selection before ++ [pending] := by
        rw [more, if_pos ⟨inside, room, not_not.mp fun exceeds => over_ (over_iff.mpr exceeds)⟩]
      have kept : scan.currentLine = pending := by
        unfold Holds at holds
        rw [if_pos chosen] at holds
        split at holds
        · exact holds.2
        · exact absurd (by simp [overflows, holds.2.1]) over_
      have size := RangeQuery.length_selection proper inside
      refine ⟨_, by simp only [complete, chosen, over_, if_true]; rfl, ?_, rfl, rfl⟩
      refine ⟨by simp [nextLine, tracks.lineNo], by simp [nextLine, tracks.totalLines], ?_,
        by simp [nextLine, tracks.selectedLines, added, same], ?_, ?_, by simp [added]⟩
      · rw [added, ← same]
        by_cases none : query.taken before = []
        · simp [nextLine, tracks.selectedLines, tracks.content, none, kept]
        · rw [join_concat newline none]
          simp [nextLine, tracks.selectedLines, tracks.content, kept, List.length_pos_iff.mpr none]
      · have open_ : scan.truncated = false := by
          rw [tracks.truncated]
          exact decide_eq_false (by omega)
        simp [nextLine, added, asked, open_]
      · simp only [nextLine, tracks.lineNo, added, List.length_append, List.length_singleton]
        omega
  · right
    -- the line lies outside the range or behind a line that was left out
    have unchanged : query.taken (before ++ [pending]) = query.taken before := by
      rw [more, if_neg fun fits => chosen (tracks.selected_iff.mpr ⟨fits.1, fits.2.1⟩)]
    refine ⟨_, by simp only [complete, chosen]; rfl, ?_, rfl, rfl⟩
    refine ⟨by simp [nextLine, tracks.lineNo], by simp [nextLine, tracks.totalLines],
      by rw [unchanged]; exact tracks.content, by rw [unchanged]; exact tracks.selectedLines,
      ?_, by rw [unchanged]; exact tracks.endLine, ?_⟩
    · refine tracks.truncated.trans ?_
      rw [unchanged, asked, decide_eq_decide]
      split
      · next inside =>
          have short : (query.taken before).length < (query.selection before).length := by
            by_contra room
            exact chosen (tracks.selected_iff.mpr ⟨inside, by omega⟩)
          simp only [List.length_append]
          omega
      · rw [List.append_nil]
    · intro none
      rw [unchanged] at none
      have empty := tracks.begun none
      rw [asked, if_neg, empty, List.append_nil]
      intro inside
      exact chosen (tracks.selected_iff.mpr ⟨inside, by simp [empty]⟩)

end LineScan

namespace RangeQuery

def ReadsAll (query : RangeQuery) (lines : List Bytes) : Prop :=
  query.stopAtEnd = false ∨
    if (query.taken lines).length < (query.selection lines).length then
      query.startLine + (query.taken lines).length = lines.length ∧
        Within query.maxBytes (lines.getLastD []).length
    else query.requestedEnd ≤ 0 ∨ (lines.length : Int) ≤ query.requestedEnd

instance (query : RangeQuery) (lines : List Bytes) : Decidable (query.ReadsAll lines) :=
  inferInstanceAs (Decidable (_ ∨ _))

def answer (query : RangeQuery) (lines : List Bytes) : Except SnapshotErr BoundedLines :=
  if query.taken lines = [] ∧ query.selection lines ≠ [] then .error .lineTooLong
  else .ok {
    content := join newline (query.taken lines)
    endLine := query.startLine - 1 + (query.taken lines).length
    totalLines := if query.ReadsAll lines then lines.length else 0
    truncated := decide ((query.taken lines).length < (query.selection lines).length)
    totalKnown := decide (query.ReadsAll lines) }

end RangeQuery

def BoundedLines.settled (lines : BoundedLines) : BoundedLines :=
  { lines with totalLines := if lines.totalKnown then lines.totalLines else 0 }

variable {content : Bytes}

namespace LineScan
variable {reader : Reader} {query : RangeQuery} {scan : LineScan} {before : List Bytes}
  {pending line : Bytes}

theorem answer_of_too_long (proper : query.Proper) (tracks : scan.Tracks query before)
    (stop : query.stopAtEnd = true) (chosen : scan.selected query = true)
    (long : ¬ Within query.maxBytes line.length) (more : List Bytes) :
    query.answer (before ++ line :: more) =
      if query.taken before = [] then .error .lineTooLong
      else .ok ⟨scan.content, scan.actualEndLine, 0, true, false⟩ := by
  obtain ⟨inside, room⟩ := tracks.selected_iff.mp chosen
  have same := tracks.taken_eq chosen
  have size := RangeQuery.length_selection proper inside
  have asked := RangeQuery.selection_concat proper before line
  rw [if_pos inside] at asked
  have left_out : query.taken (before ++ [line]) = query.taken before := by
    rw [RangeQuery.taken_concat proper, if_neg]
    rintro ⟨-, -, fits⟩
    rw [length_join_concat] at fits
    exact long (fits.mono (by omega))
  have short : (query.taken (before ++ [line])).length <
      (query.selection (before ++ [line])).length := by
    rw [left_out, asked, same]
    simp
  have stays := RangeQuery.taken_append_of_short short more
  have longer := query.length_selection_le (before ++ [line]) more
  rw [List.append_assoc, List.singleton_append] at stays longer
  rw [left_out] at stays short
  have cut : (query.taken (before ++ line :: more)).length <
      (query.selection (before ++ line :: more)).length := by
    rw [stays]
    omega
  -- the left out line is not within the limit, so being the last line does not help
  have unread : ¬ query.ReadsAll (before ++ line :: more) := by
    unfold RangeQuery.ReadsAll
    rw [if_pos cut, stays]
    rintro (going | ⟨last, fits⟩)
    · rw [stop] at going
      cases going
    · cases more with
      | nil => exact long (by simpa using fits)
      | cons next more =>
        simp only [List.length_append, List.length_cons] at last
        rw [same] at last
        omega
  unfold RangeQuery.answer
  by_cases none : query.taken before = []
  · have nonempty : query.selection (before ++ line :: more) ≠ [] := by
      intro empty
      rw [empty] at cut
      exact absurd cut (Nat.not_lt_zero _)
    rw [if_pos ⟨stays.trans none, nonempty⟩, if_pos none]
  · rw [if_neg fun empty => none (stays ▸ empty.1), if_neg none, stays]
    simp only [unread, decide_false, if_false, tracks.content, tracks.endLine]
    rw [stays] at cut
    simp [cut]

def Open (query : RangeQuery) (before : List Bytes) : Prop :=
  query.stopAtEnd = true →
    (query.selection before).length ≤ (query.taken before).length ∧
      (query.requestedEnd ≤ 0 ∨ (before.length : Int) < query.requestedEnd)

theorem left_out_next (proper : query.Proper)
    (room : (query.selection before).length ≤ (query.taken before).length)
    (short : (query.taken (before ++ [line])).length <
      (query.selection (before ++ [line])).length) :
    query.startLine + (query.taken (before ++ [line])).length = before.length + 1 := by
  have inside : query.Covers (before.length + 1) := by
    by_contra outside
    rw [RangeQuery.taken_concat proper, RangeQuery.selection_concat proper,
      if_neg outside, if_neg fun fits => outside fits.1, List.append_nil] at short
    omega
  have size := RangeQuery.length_selection proper inside
  have same : query.taken before = query.selection before := fitting_eq_of_length room
  rw [RangeQuery.taken_concat proper, RangeQuery.selection_concat proper, if_pos inside] at short
  rw [RangeQuery.taken_concat proper]
  split at short
  · exact absurd short (lt_irrefl _)
  · next kept =>
      rw [if_neg kept, same]
      omega

theorem result_at_end (proper : query.Proper) (open_ : Open query before)
    (tracks : scan.nextLine.Tracks query (before ++ [line]))
    (within : query.stopAtEnd = true → query.Covers (before.length + 1) →
      Within query.maxBytes line.length)
    (begun : ¬ (query.taken (before ++ [line]) = [] ∧ query.selection (before ++ [line]) ≠ [])) :
    (.ok (scan.result true).settled : Except SnapshotErr BoundedLines) =
      query.answer (before ++ [line]) := by
  have all : query.ReadsAll (before ++ [line]) := by
    unfold RangeQuery.ReadsAll
    cases stop : query.stopAtEnd with
    | false => exact .inl rfl
    | true =>
      right
      obtain ⟨room, ahead⟩ := open_ stop
      split
      · next short =>
          have next := left_out_next proper room short
          refine ⟨by simpa using next, ?_⟩
          have inside : query.Covers (before.length + 1) := by
            refine ⟨by push_cast; omega, ?_⟩
            push_cast
            omega
          simpa using within stop inside
      · simp only [List.length_append, List.length_singleton]
        omega
  have content := tracks.content
  have ends := tracks.endLine
  have total := tracks.totalLines
  have truncated := tracks.truncated
  simp only [nextLine, List.length_append, List.length_singleton, Nat.add_right_cancel_iff]
    at content ends total truncated
  unfold RangeQuery.answer
  rw [if_neg begun]
  simp [result, BoundedLines.settled, content, ends, total, truncated, all]

theorem result_at_stop (proper : query.Proper) (open_ : Open query before)
    (tracks : scan.nextLine.Tracks query (before ++ [line]))
    (stops : scan.nextLine.stops query = true) {more : List Bytes} (goesOn : more ≠ []) :
    (.ok (scan.nextLine.result false).settled : Except SnapshotErr BoundedLines) =
      query.answer (before ++ line :: more) := by
  simp only [LineScan.stops, Bool.and_eq_true, Bool.or_eq_true, decide_eq_true_eq] at stops
  obtain ⟨stop, reason⟩ := stops
  have room := (open_ stop).1
  have further : 0 < more.length := List.length_pos_iff.mpr goesOn
  have split : before ++ line :: more = (before ++ [line]) ++ more := by simp
  have cases_ : query.taken (before ++ line :: more) = query.taken (before ++ [line]) ∧
      ((query.taken (before ++ line :: more)).length <
        (query.selection (before ++ line :: more)).length ↔
        (query.taken (before ++ [line])).length < (query.selection (before ++ [line])).length) ∧
      ¬ query.ReadsAll (before ++ line :: more) := by
    rw [split]
    by_cases short : (query.taken (before ++ [line])).length <
        (query.selection (before ++ [line])).length
    · have stays := RangeQuery.taken_append_of_short short more
      have longer := query.length_selection_le (before ++ [line]) more
      have next := left_out_next proper room short
      refine ⟨stays, by rw [stays]; exact ⟨fun _ => short, fun _ => by omega⟩, ?_⟩
      unfold RangeQuery.ReadsAll
      rw [stays, if_pos (by omega)]
      rintro (going | ⟨last, -⟩)
      · rw [stop] at going
        cases going
      · simp only [List.length_append, List.length_singleton] at last
        omega
    · have bounded : 0 < query.requestedEnd ∧ query.requestedEnd ≤ (before ++ [line]).length := by
        rcases reason with ⟨bounded, reached⟩ | cut
        · rw [tracks.lineNo] at reached
          exact ⟨bounded, by push_cast at reached; omega⟩
        · rw [tracks.truncated, decide_eq_true_eq] at cut
          exact absurd cut short
      have same := RangeQuery.selection_append_beyond bounded.1 bounded.2 more
      have stays : query.taken ((before ++ [line]) ++ more) = query.taken (before ++ [line]) := by
        rw [RangeQuery.taken, same, RangeQuery.taken]
      refine ⟨stays, by rw [stays, same], ?_⟩
      unfold RangeQuery.ReadsAll
      rw [stays, same, if_neg short]
      rintro (going | unbounded | beyond)
      · rw [stop] at going
        cases going
      · omega
      · rw [List.length_append] at beyond
        omega
  obtain ⟨stays, cut, unread⟩ := cases_
  have nonempty : ¬ (query.taken (before ++ line :: more) = [] ∧
      query.selection (before ++ line :: more) ≠ []) := by
    rintro ⟨none, some⟩
    have empty := tracks.begun (stays ▸ none)
    have all : (query.selection (before ++ line :: more)).length ≤
        (query.taken (before ++ line :: more)).length := by
      rw [← Nat.not_lt, cut, empty]
      exact Nat.not_lt_zero _
    rw [none] at all
    exact some (List.length_eq_zero_iff.mp (Nat.le_zero.mp all))
  unfold RangeQuery.answer
  rw [if_neg nonempty]
  rw [stays] at cut
  simp only [result, BoundedLines.settled, unread, tracks.content, tracks.endLine,
    tracks.truncated, stays, cut, decide_false, if_false, Bool.false_eq_true]

theorem settled_returned (none : Prop) [Decidable none] (scan : LineScan) :
    (if none then .error .lineTooLong
      else .ok ⟨scan.content, scan.actualEndLine, 0, true, false⟩ :
      Except SnapshotErr BoundedLines).map BoundedLines.settled =
      if none then .error .lineTooLong
      else .ok ⟨scan.content, scan.actualEndLine, 0, true, false⟩ := by
  split <;> rfl

/-- From any point in the middle of a line on, the loop returns what the lines read, the rest of
this one and those behind it call for. -/
theorem scanLines_eq (proper : query.Proper) (reads : reader.Reads content)
    (tracks : scan.Tracks query before) (holds : scan.Holds query pending)
    (open_ : Open query before) (plain : newline ∉ pending) :
    (scanLines query reader scan).map BoundedLines.settled =
      query.answer (before ++ (pending ++ content).splitOn newline) := by
  -- induction over the answers of the reader; a part that ends no line grows `pending`
  induction reads generalizing scan before pending with
  | @eof part free =>
    rw [splitOn_last newline plain free, scanLines]
    rcases collect_cases tracks holds part with
      ⟨scan', went, tracks', holds'⟩ | ⟨stop, chosen, long, returned⟩
    · rw [went]
      rcases complete_cases proper tracks' holds' with
        ⟨failed, none, some⟩ | ⟨scan'', done, tracked, -, -⟩
      · simp [failed, Except.map, RangeQuery.answer, none, some]
      · simp only [done, Except.map]
        refine result_at_end proper open_ tracked ?_ ?_
        · intro stop inside
          by_contra long
          unfold Holds at holds'
          rw [if_neg long, if_pos (tracks'.selected_iff.mpr ⟨inside, (open_ stop).1⟩)] at holds'
          exact absurd stop (by simp [holds'.1])
        · rintro ⟨none, some⟩
          exact some (tracked.begun none)
    · rw [answer_of_too_long proper tracks stop chosen long, returned]
      exact settled_returned _ _
  | @line part content rest free reads ih =>
    rw [splitOn_line newline plain free, scanLines]
    rcases collect_cases tracks holds part with
      ⟨scan', went, tracks', holds'⟩ | ⟨stop, chosen, long, returned⟩
    · rw [went]
      rcases complete_cases proper tracks' holds' with
        ⟨failed, none, some⟩ | ⟨scan'', done, tracked, fresh, empty⟩
      · -- nothing that follows makes the first line of the range fit
        have short : (query.taken (before ++ [pending ++ part])).length <
            (query.selection (before ++ [pending ++ part])).length := by
          rw [none]
          exact List.length_pos_iff.mpr some
        have stays := RangeQuery.taken_append_of_short short (content.splitOn newline)
        have longer := query.length_selection_le (before ++ [pending ++ part])
          (content.splitOn newline)
        rw [List.append_assoc, List.singleton_append] at stays longer
        have asked : query.selection
            (before ++ (pending ++ part) :: content.splitOn newline) ≠ [] :=
          List.length_pos_iff.mp (by omega)
        simp [failed, Except.map, RangeQuery.answer, stays, none, asked]
      · simp only [done]
        split
        · next stops =>
            exact result_at_stop proper open_ tracked stops (List.splitOn_ne_nil _ _)
        · next going =>
            have opens : Open query (before ++ [pending ++ part]) := by
              intro stop
              simp only [LineScan.stops, stop, Bool.true_and, Bool.or_eq_true, Bool.and_eq_true,
                decide_eq_true_eq, tracked.truncated, tracked.lineNo, not_or, not_and] at going
              refine ⟨by omega, ?_⟩
              by_cases bounded : 0 < query.requestedEnd
              · have := going.1 bounded
                push_cast at this ⊢
                omega
              · omega
            have continues := ih tracked (holds_nil fresh empty) opens List.not_mem_nil
            rwa [List.append_assoc, List.singleton_append, List.nil_append] at continues
    · rw [answer_of_too_long proper tracks stop chosen long, returned]
      exact settled_returned _ _
  | @full part content rest free reads ih =>
    rw [scanLines, ← List.append_assoc]
    rcases collect_cases tracks holds part with
      ⟨scan', went, tracks', holds'⟩ | ⟨stop, chosen, long, returned⟩
    · rw [went]
      exact ih tracks' holds' open_ (by simp [plain, free])
    · rw [splitOn_append_of_notMem newline (by simp [plain, free])]
      obtain ⟨first, more, lines⟩ :=
        List.exists_cons_of_ne_nil (List.splitOn_ne_nil newline content)
      rw [lines, List.modifyHead_cons,
        answer_of_too_long proper tracks stop chosen
          (fun fits => long (fits.mono (by simp))), returned]
      exact settled_returned _ _

end LineScan

variable {query : RangeQuery}

theorem readBoundedLines_eq (proper : query.Proper) (reads : reader.Reads content) :
    (readBoundedLines reader query).map BoundedLines.settled =
      query.answer (content.splitOn newline) := by
  have open_ : LineScan.Open query [] := by
    intro _
    have := proper.start
    have := proper.ordered
    refine ⟨by simp, ?_⟩
    simp only [List.length_nil]
    omega
  exact LineScan.scanLines_eq proper reads LineScan.tracks_init (LineScan.holds_nil rfl rfl) open_
    List.not_mem_nil

def RangeQuery.TooLong (query : RangeQuery) (lines : List Bytes) : Prop :=
  0 < query.maxBytes ∧
    ∃ first rest, query.selection lines = first :: rest ∧ query.maxBytes < first.length

theorem RangeQuery.tooLong_iff :
    query.taken lines = [] ∧ query.selection lines ≠ [] ↔ query.TooLong lines := by
  rw [taken, fitting_eq_nil_iff, TooLong]
  constructor
  · rintro ⟨long, some⟩
    obtain ⟨first, rest, asked⟩ := List.exists_cons_of_ne_nil some
    have exceeds := long first rest asked
    unfold Within at exceeds
    exact ⟨by omega, first, rest, asked, by omega⟩
  · rintro ⟨bounded, first, rest, asked, exceeds⟩
    rw [asked]
    refine ⟨?_, List.cons_ne_nil _ _⟩
    rintro _ _ ⟨⟩
    unfold Within
    omega

def BoundedLines.shown (lines : BoundedLines) : Bytes × Int × Bool :=
  (lines.content, lines.endLine, lines.truncated)

theorem readBoundedLines_shown (proper : query.Proper) (reads : reader.Reads content) :
    (readBoundedLines reader query).map BoundedLines.shown =
      (query.answer (content.splitOn newline)).map BoundedLines.shown := by
  rw [← readBoundedLines_eq proper reads]
  cases readBoundedLines reader query <;> rfl

theorem RangeQuery.answer_shown (query : RangeQuery) (stop : Bool) (lines : List Bytes) :
    ({ query with stopAtEnd := stop }.answer lines).map BoundedLines.shown =
      (query.answer lines).map BoundedLines.shown := by
  have asked : { query with stopAtEnd := stop }.selection lines = query.selection lines := rfl
  have found : { query with stopAtEnd := stop }.taken lines = query.taken lines := rfl
  unfold answer
  rw [asked, found]
  split <;> rfl

/-- However the buffered reader cuts the file up, the range reader returns the longest run of the
requested lines within the limit, and reports a line that is too long exactly if the first one alone
exceeds it. -/
theorem readBoundedLines_longest_run {content : Bytes} {reader : Reader} {query : RangeQuery}
    (reads : reader.Reads content) (start : 1 ≤ query.startLine)
    (ordered : query.requestedEnd ≤ 0 ∨ query.startLine ≤ query.requestedEnd) :
    (readBoundedLines reader query = .error .lineTooLong ↔
      query.TooLong (content.splitOn newline)) ∧
    (¬ query.TooLong (content.splitOn newline) → ∃ lines run,
      readBoundedLines reader query = .ok lines ∧
      IsLongestFit newline query.maxBytes (query.selection (content.splitOn newline)) run ∧
      lines.content = join newline run ∧ lines.endLine = query.startLine + run.length - 1 ∧
      (lines.truncated = true ↔
        run.length < (query.selection (content.splitOn newline)).length)) ∧
    ∀ other, other.Reads content →
      (readBoundedLines reader { query with stopAtEnd := true }).map BoundedLines.shown =
        (readBoundedLines other { query with stopAtEnd := false }).map BoundedLines.shown := by
  have found := readBoundedLines_shown ⟨start, ordered⟩ reads
  refine ⟨?_, ?_, ?_⟩
  · rw [← RangeQuery.tooLong_iff]
    unfold RangeQuery.answer at found
    split at found <;> rename_i long
    · simp only [long]
      cases returned : readBoundedLines reader query <;> simp_all [Except.map]
    · simp only [long, iff_false]
      intro failed
      rw [failed] at found
      cases found
  · intro short
    unfold RangeQuery.answer at found
    rw [if_neg (mt RangeQuery.tooLong_iff.mp short)] at found
    cases returned : readBoundedLines reader query with
    | error err =>
        rw [returned] at found
        cases found
    | ok lines =>
        rw [returned] at found
        simp only [Except.map, BoundedLines.shown, Except.ok.injEq, Prod.mk.injEq] at found
        refine ⟨lines, query.taken (content.splitOn newline), rfl,
          isLongestFit_fitting newline _ _, found.1, by omega, ?_⟩
        rw [found.2.2, decide_eq_true_eq]
  · intro other others
    have proper (stop : Bool) : { query with stopAtEnd := stop }.Proper := ⟨start, ordered⟩
    rw [readBoundedLines_shown (proper true) reads, readBoundedLines_shown (proper false) others,
      query.answer_shown true, query.answer_shown false]

/-- Three lines, cut inside of the first one, with a limit that the third exceeds. -/
theorem readBoundedLines_longest_run_cut :
    (readBoundedLines (.full [97] (.line [98] (.line [] (.eof [99, 100, 101])))) ⟨1, 0, 5,
      true⟩).map
        BoundedLines.shown =
      (readBoundedLines (.line [97, 98] (.line [] (.eof [99, 100, 101]))) ⟨1, 0, 5, false⟩).map
        BoundedLines.shown :=
  (@readBoundedLines_longest_run _ _ ⟨1, 0, 5, true⟩
    (.full (by decide) (.line (by decide) (.line (by decide) (.eof (by decide)))))
    (by decide) (by decide)).2.2 _
    (.line (by decide) (.line (by decide) (.eof (by decide))))

def RangeQuery.found (query : RangeQuery) (path : String) (lines : List Bytes) : FileRange where
  path
  startLine := query.startLine
  endLine := query.startLine - 1 + (query.taken lines).length
  totalLines := if query.ReadsAll lines then lines.length else 0
  content := join newline (query.taken lines)
  truncated := decide ((query.taken lines).length < (query.selection lines).length)

theorem RangeQuery.readsAll_of_beyond (proper : query.Proper)
    (beyond : (lines.length : Int) < query.startLine) :
    query.ReadsAll lines := by
  have ordered := proper.ordered
  right
  rw [selection_eq_nil_of_lt beyond, if_neg (by simp)]
  omega

theorem readRange_eq {query : RangeQuery} (proper : query.Proper) {reader : Reader}
    {content : Bytes} (reads : reader.Reads content) (path : String) :
    readRange reader path query.startLine query.requestedEnd query.maxBytes query.stopAtEnd =
      if ((content.splitOn newline).length : Int) < query.startLine then
        .error (.message (rangeText query.startLine query.requestedEnd ++
          " (total lines " ++ toString (content.splitOn newline).length ++ ")"))
      else if query.taken (content.splitOn newline) = [] ∧
          query.selection (content.splitOn newline) ≠ [] then .error .lineTooLong
      else .ok (query.found path (content.splitOn newline)) := by
  have start := proper.start
  have ordered := proper.ordered
  have read := readBoundedLines_eq proper reads
  generalize content.splitOn newline = lines at read ⊢
  unfold readRange
  rw [if_neg (show ¬ query.startLine ≤ 0 by omega)]
  simp only [bind, Except.bind, pure, Except.pure]
  rw [if_neg (show ¬ (0 < query.requestedEnd ∧ query.requestedEnd < query.startLine) by omega)]
  unfold RangeQuery.answer at read
  by_cases long : query.taken lines = [] ∧ query.selection lines ≠ []
  · have inside : ¬ (lines.length : Int) < query.startLine :=
      fun beyond => long.2 (RangeQuery.selection_eq_nil_of_lt beyond)
    rw [if_pos long] at read
    cases returned : readBoundedLines reader query with
    | error err =>
      rw [returned] at read
      cases read
      simp [long, inside]
    | ok bounded =>
      rw [returned] at read
      cases read
  · rw [if_neg long] at read
    cases returned : readBoundedLines reader query with
    | error err =>
      rw [returned] at read
      cases read
    | ok bounded =>
      rw [returned] at read
      simp only [Except.map, Except.ok.injEq, BoundedLines.settled, BoundedLines.mk.injEq] at read
      obtain ⟨text, last, total, cut, known⟩ := read
      by_cases all : query.ReadsAll lines
      · simp only [all, decide_true] at known
        simp only [all, known, if_true] at total
        by_cases beyond : (lines.length : Int) < query.startLine
        · simp [known, total, beyond, throw, throwThe, MonadExceptOf.throw]
        · simp [known, total, beyond, long, RangeQuery.found, all, text, last, cut]
      · have inside := mt (RangeQuery.readsAll_of_beyond proper) all
        simp only [all, decide_false] at known
        simp [known, inside, long, RangeQuery.found, all, text, last, cut]

end RepoLens
